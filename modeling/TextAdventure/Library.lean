import TextAdventure.Failure
import TextAdventure.Room
import TextAdventure.Thing
import TextAdventure.World

/-!
# The library of an adventure

A library hands out the documents of an adventure. It asks a source of texts for what it does not
have, and keeps what it could read. The path of a document is made of its kind and its id, and an id
that would lead elsewhere is turned down without asking the source.
-/

namespace TextAdventure

/-- Where texts come from: for each path a text, or the reason why there is none. -/
abbrev Source := String → Except Failure String

/-- The documents that have been read so far. -/
structure Library where
  /-- The path of the world document. -/
  worldFile : String
  world : Option World
  rooms : Table Room
  items : Table Item
  fixtures : Table Fixture
  enemies : Table Enemy
  art : Table String

/-- The answer of a library to one request. -/
structure Library.Answer (α : Type) where
  result : Except Failure α
  /-- The library afterwards. -/
  library : Library
  /-- The paths that the source was asked for. -/
  fetched : List String

namespace Library

/-- The path of the world document, unless an adventure says otherwise. -/
def standardWorldFile : String := "world.json"

/-- A library without documents. -/
def empty (worldFile : String) : Library :=
  ⟨worldFile, none, .empty, .empty, .empty, .empty, .empty⟩

/-- The library after forgetting its documents. -/
def clear (l : Library) : Library := empty l.worldFile

/-- The path of a document of a kind. -/
def documentPath (kind id : String) : String := kind ++ "/" ++ id ++ ".json"

/-- Whether an id names a file and does not lead to another folder. -/
def isFileName (id : String) : Bool :=
  id != "" && id != "." && id != ".." && !id.toList.any fun c => c == '/' || c == '\\'

/-- Whether a path has a part that leads to the folder above. -/
def leadsUp (path : String) : Bool :=
  (path.toList.splitOnP fun c => c == '/' || c == '\\').contains ['.', '.']

/-- The document at a path. -/
def fetch {α : Type} [Document α] (source : Source) (path : String) : Except Failure α :=
  match source path with
  | .ok text =>
    match Document.ofText? text with
    | some doc => .ok doc
    | none => .error (.parse path)
  | .error e => .error e

/-- A document of a kind: from the shelf if it is there, and otherwise from the source. The answer
comes with the shelf afterwards and the paths that the source was asked for. -/
def look {α : Type} [Document α] (source : Source) (kind : String) (shelf : Table α)
    (id : String) : Except Failure α × Table α × List String :=
  match shelf.get? id with
  | some doc => (.ok doc, shelf, [])
  | none =>
    let path := documentPath kind id
    if isFileName id then
      match fetch source path with
      | .ok doc => (.ok doc, shelf.insert id doc, [path])
      | .error e => (.error e, shelf, [path])
    else (.error (.load path "invalid id"), shelf, [])

/-- The world. -/
def getWorld (source : Source) (l : Library) : Answer World :=
  match l.world with
  | some w => ⟨.ok w, l, []⟩
  | none =>
    match fetch source l.worldFile with
    | .ok w => ⟨.ok w, { l with world := some w }, [l.worldFile]⟩
    | .error e => ⟨.error e, l, [l.worldFile]⟩

/-- The room with an id. -/
def getRoom (source : Source) (id : String) (l : Library) : Answer Room :=
  let (result, shelf, fetched) := look source "rooms" l.rooms id
  ⟨result, { l with rooms := shelf }, fetched⟩

/-- The item with an id. -/
def getItem (source : Source) (id : String) (l : Library) : Answer Item :=
  let (result, shelf, fetched) := look source "items" l.items id
  ⟨result, { l with items := shelf }, fetched⟩

/-- The fixture with an id. -/
def getFixture (source : Source) (id : String) (l : Library) : Answer Fixture :=
  let (result, shelf, fetched) := look source "objects" l.fixtures id
  ⟨result, { l with fixtures := shelf }, fetched⟩

/-- The enemy with an id. -/
def getEnemy (source : Source) (id : String) (l : Library) : Answer Enemy :=
  let (result, shelf, fetched) := look source "enemies" l.enemies id
  ⟨result, { l with enemies := shelf }, fetched⟩

/-- The picture at a path, which must not lead to a folder above. -/
def getArt (source : Source) (path : String) (l : Library) : Answer String :=
  match l.art.get? path with
  | some text => ⟨.ok text, l, []⟩
  | none =>
    if leadsUp path then ⟨.error (.load path "invalid path"), l, []⟩
    else match source path with
      | .ok text => ⟨.ok text, { l with art := l.art.insert path text }, [path]⟩
      | .error e => ⟨.error e, l, [path]⟩

end Library

end TextAdventure
