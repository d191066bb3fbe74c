import TextAdventure.Art
import TextAdventure.Script

/-!
# Rooms

A room as an author writes it: what is seen there, where its exits lead, and the scripts that run
when it is entered. Fields that the engine does not know stay in the document.
-/

namespace TextAdventure

/-- What an author says about the lock of an exit. -/
structure ExitMeta where
  locked : Bool
  /-- The fixture that opens the exit. -/
  objectId : Option String
  /-- The flag that has to be set before the fixture opens the exit. -/
  flag : Option String
  deriving DecidableEq, Repr

namespace ExitMeta

/-- The fields of exit metadata, in the order in which they are written. -/
def fieldNames : List String := ["locked", "objectId", "flag"]

/-- Reads exit metadata. -/
def ofTree? (t : Json.Tree) : Option ExitMeta := do
  let r ← t.record? fieldNames 0
  return {
    locked := ← r.withDefault "locked" false Json.Tree.bool?
    objectId := ← r.optional "objectId" Json.Tree.string?
    flag := ← r.optional "flag" Json.Tree.string? }

/-- The value that is written for exit metadata. -/
def toJson (m : ExitMeta) : Json :=
  .object (("locked", .bool m.locked) ::
    (Json.optionalField "objectId" .string m.objectId ++
      Json.optionalField "flag" .string m.flag))

instance : Document ExitMeta := ⟨ofTree?, toJson⟩

end ExitMeta

/-- A room. -/
structure Room where
  id : String
  title : String
  description : String
  /-- The picture that is shown before the title. -/
  ascii : Option ArtRef
  /-- The ids of the items that lie in the room until somebody takes them. -/
  items : List String
  /-- The ids of the fixtures of the room. -/
  objects : List String
  /-- The room behind each exit. -/
  exits : Table String
  exitMeta : Table ExitMeta
  /-- The script that runs when the room is entered for the first time. -/
  onFirstEnter : Script
  /-- The script that runs when the room is entered again. -/
  onEnter : Script
  /-- The fields that the engine does not know. -/
  extra : Table Json

namespace Room

/-- The fields of a room that the engine knows. -/
def fieldNames : List String :=
  ["id", "title", "description", "ascii", "items", "objects", "exits", "exitMeta", "exit_meta",
    "on_first_enter", "on_enter"]

/-- Reads a room. Unlike other documents it has to be an object, since its other fields are kept. -/
def ofTree? (t : Json.Tree) : Option Room := do
  let r : Json.Record Json.Tree := ⟨← t.objectFields?⟩
  let ids := Json.Tree.list? Json.Tree.string?
  return {
    id := ← r.required "id" Json.Tree.string?
    title := ← r.withDefault "title" "" Json.Tree.string?
    description := ← r.withDefault "description" "" Json.Tree.string?
    ascii := ← r.optional "ascii" ArtRef.ofTree?
    items := ← r.withDefault "items" [] ids
    objects := ← r.withDefault "objects" [] ids
    exits := ← r.withDefault "exits" .empty (Json.Tree.table? Json.Tree.string?)
    exitMeta := ← r.among ["exitMeta", "exit_meta"] .empty (Json.Tree.table? ExitMeta.ofTree?)
    onFirstEnter := ← r.withDefault "on_first_enter" [] Script.ofTree?
    onEnter := ← r.withDefault "on_enter" [] Script.ofTree?
    extra := ← (Json.Tree.object (r.others fieldNames)).table? Json.Tree.toJson? }

/-- The value that is written for a room. -/
def toJson (r : Room) : Json :=
  .object ([("id", .string r.id), ("title", .string r.title),
      ("description", .string r.description)] ++
    Json.optionalField "ascii" ArtRef.toJson r.ascii ++
    [("items", .stringList r.items), ("objects", .stringList r.objects),
      ("exits", .ofTable .string r.exits)] ++
    (if r.exitMeta.isEmpty then [] else [("exitMeta", .ofTable ExitMeta.toJson r.exitMeta)]) ++
    [("on_first_enter", r.onFirstEnter.toJson), ("on_enter", r.onEnter.toJson)] ++
    r.extra.entries)

instance : Document Room := ⟨ofTree?, toJson⟩

end Room

end TextAdventure
