import TextAdventure.Bundle
import TextAdventure.Disk

/-!
# Bundles on disk

The rooms and fixtures of an adventure are files in two folders, each document in a file of its own.
Reading goes through the files in the order of their names; writing names each file by the id of its
document.
-/

namespace TextAdventure.Bundle

/-- The folder of the rooms, below that of the data. -/
def roomFolder (data : String) : String := Path.join data "rooms"

/-- The folder of the fixtures, below that of the data. -/
def objectFolder (data : String) : String := Path.join data "objects"

/-- The document in a file. -/
def readDocument {α : Type} [Document α] (d : Disk) (path : String) : Except Failure α :=
  match d.readText path with
  | .ok text =>
    match Document.ofText? text with
    | some doc => .ok doc
    | none => .error (.parse path)
  | .error e => .error (.load path e.message)

/-- The documents in the JSON files of a folder, in the order of the file names. A folder that is
not there has no documents. -/
def readDocuments {α : Type} [Document α] (d : Disk) (folder : String) :
    Except Failure (List α) :=
  if d.isFolder folder then
    ((d.list folder).filter Path.isJsonFile).mapM fun name => readDocument d (Path.join folder name)
  else .ok []

/-- The bundle in a data folder. Of documents with the same id the last counts. -/
def read (d : Disk) (data : String) : Except Failure Bundle := do
  let rooms : List Room ← readDocuments d (roomFolder data)
  let objects : List Fixture ← readDocuments d (objectFolder data)
  return objects.foldl addFixture (rooms.foldl addRoom empty)

/-- The path of the file for a document with an id. -/
def documentPath (folder id : String) : String := Path.join folder (id ++ ".json")

/-- Writes documents to files of a folder. -/
def writeFiles {α : Type} [Document α] (folder : String) :
    List (String × α) → Disk → Except Failure Unit × Disk
  | [], d => (.ok (), d)
  | (id, doc) :: rest, d =>
    match d.writeText (documentPath folder id) (Document.fileText doc) with
    | .ok d => writeFiles folder rest d
    | .error e => (.error (.io e.message), d)

/-- Writes documents to files of a folder, which is created if it is not there. -/
def writeDocuments {α : Type} [Document α] (folder : String) (docs : Table α) (d : Disk) :
    Except Failure Unit × Disk :=
  match d.createFolders folder with
  | (.ok (), d) => writeFiles folder docs.entries d
  | (.error e, d) => (.error (.io e.message), d)

/-- Writes a bundle to a data folder. What was written before an error stays. -/
def write (b : Bundle) (data : String) (d : Disk) : Except Failure Unit × Disk :=
  match writeDocuments (roomFolder data) b.rooms d with
  | (.ok (), d) => writeDocuments (objectFolder data) b.objects d
  | (.error e, d) => (.error e, d)

end TextAdventure.Bundle
